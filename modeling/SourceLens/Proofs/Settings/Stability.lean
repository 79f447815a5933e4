import SourceLens.Proofs.Builtin.Lawful
import SourceLens.Proofs.Registry.History
import SourceLens.Proofs.Settings.Given
import SourceLens.Proofs.Settings.Revalidation

/-!
# Settings that stay as they are

Accepted settings are a fixed point of validation, wherever they come from, as long as the instances
among them are as validation has made them (`Validator.Made`). So the last step of loading neither
fails nor changes anything, and the handlers that are made from the settings have widths in the
range that validation allows (`accepted_settings_stay`).
-/

namespace SourceLens

namespace Registry

theorem handler_of_mem_number {entry : Registered} {handlers : List Handler} {first : Nat}
    (h : entry ∈ number first handlers) : entry.handler ∈ handlers := by
  induction handlers generalizing first with
  | nil => cases h
  | cons handler rest ih =>
    rw [number, List.mem_cons] at h
    rcases h with rfl | h
    · exact List.mem_cons_self
    · exact List.mem_cons_of_mem _ (ih h)

theorem indentSize_of_mem_standardHandlers {handler : Handler} {indentSize markupIndentSize : Nat}
    (h : handler ∈ standardHandlers indentSize markupIndentSize) :
    handler.indentSize = indentSize ∨ handler.indentSize = markupIndentSize := by
  simp only [standardHandlers, List.mem_cons, List.not_mem_nil, or_false] at h
  rcases h with rfl | rfl | rfl | rfl | rfl
  · exact .inl rfl
  · exact .inl rfl
  · exact .inl rfl
  · exact .inl rfl
  · exact .inr rfl

theorem indentSize_of_mem_standard {entry : Registered} {indentSize markupIndentSize : Nat}
    (h : entry ∈ (standard indentSize markupIndentSize).1.handlers) :
    entry.handler.indentSize = indentSize ∨ entry.handler.indentSize = markupIndentSize := by
  have hhistory : (standard indentSize markupIndentSize).1.handlers
      = number 0 (standardHandlers indentSize markupIndentSize) :=
    (reflects_ofHistory _).handlers
  rw [hhistory] at h
  exact indentSize_of_mem_standardHandlers (handler_of_mem_number h)

end Registry

namespace Settings

/-! ## The error of the last step -/

section Rejected

variable {packages : Packages} {first : Violation} {rest : List Violation}

theorem raised_ne_rejected {α : Type} (result : Except Raised α) :
    result.mapError LoadError.raised ≠ .error (.rejected first rest) := by
  cases result <;> simp [Except.mapError]

theorem readFile_ne_rejected (system : System) (path : Text) :
    readFile packages system path ≠ .error (.rejected first rest) := by
  intro h
  rw [readFile_eq] at h
  obtain h | ⟨status, -, h⟩ := bind_eq_error.1 h
  · exact raised_ne_rejected _ h
  split_ifs at h
  obtain h | ⟨bytes, -, h⟩ := bind_eq_error.1 h
  · exact raised_ne_rejected _ h
  obtain h | ⟨value, -, h⟩ := bind_eq_error.1 h
  · obtain ⟨problem, -, hproblem⟩ := mapError_eq_error.1 h
    cases problem <;> cases hproblem
  · unfold topEntries at h
    split_ifs at h
    split at h <;> cases h

theorem projectFile_ne_rejected (sources : Sources) :
    projectFile sources ≠ .error (.rejected first rest) := by
  intro h
  obtain h | ⟨root, -, h⟩ := bind_eq_error.1 h
  · rw [Sources.directory] at h
    split at h
    · cases h
    · exact raised_ne_rejected _ h
  · split at h
    · cases h
    · obtain h | ⟨path, -, h⟩ := bind_eq_error.1 h
      · exact raised_ne_rejected _ h
      obtain h | ⟨status, -, h⟩ := bind_eq_error.1 h
      · exact raised_ne_rejected _ h
      split_ifs at h <;> cases h

theorem given_ne_rejected (sources : Sources) (source : Source) :
    sources.given packages source ≠ .error (.rejected first rest) := by
  intro h
  cases source with
  | globalFile => exact readFile_ne_rejected _ _ h
  | projectFile =>
    obtain h | ⟨path, -, h⟩ := bind_eq_error.1 h
    · exact projectFile_ne_rejected _ h
    · exact readFile_ne_rejected _ _ h
  | environment => exact raised_ne_rejected _ h
  | overrides => exact raised_ne_rejected _ h

theorem ofFailure_ne_rejected (failure : Failure) :
    LoadError.ofFailure failure ≠ .rejected first rest := by
  cases failure with
  | raised cause => exact nofun
  | invalid found more =>
    rw [LoadError.ofFailure]
    split_ifs <;> exact nofun

theorem resolved_ne_rejected (h : packages.Lawful) (sources : Sources) :
    resolved packages sources ≠ .error (.rejected first rest) := by
  intro hresolved
  rw [resolved_eq h] at hresolved
  obtain hpath | ⟨path, -, hresolved⟩ := bind_eq_error.1 hresolved
  · exact projectFile_ne_rejected _ hpath
  obtain hmerged | ⟨entries, -, hresolved⟩ := bind_eq_error.1 hresolved
  · obtain ⟨source, hfails, -⟩ := mergeAll_eq_error.1 hmerged
    exact given_ne_rejected _ _ hfails
  obtain hsettings | ⟨dumped, -, hdumped⟩ := bind_eq_error.1 hresolved
  · obtain ⟨failure, -, hfailure⟩ := mapError_eq_error.1 hsettings
    exact ofFailure_ne_rejected _ hfailure
  · exact raised_ne_rejected _ hdumped

end Rejected

/-! ## Accepted settings -/

section Accepted

variable {packages : Packages} (h : packages.Lawful) {homes : Homes}
  (hmade : packages.validator.Made homes)

include h hmade

theorem settled_of_accepted {dumped : Dumped}
    (haccepted : (∃ value, packages.validator.config homes value = .ok dumped)
      ∨ ∃ entries,
        packages.validator.settings (packages.validator.sectionFields homes) entries = .ok dumped) :
    ∃ config : Config, config.Settled ∧ dumped = .ok config.toValue := by
  rcases haccepted with ⟨value, hvalue⟩ | ⟨entries, hentries⟩
  · exact settled_of_config h.validator hmade hvalue
  · exact settled_of_settings h.validator hmade hentries

theorem load_eq_resolved {sources : Sources} (hhomes : sources.system.homes = homes) :
    load packages sources = resolved packages sources := by
  subst hhomes
  show (resolved packages sources).bind _ = _
  cases hresolved : resolved packages sources with
  | error cause => rfl
  | ok value =>
    obtain ⟨entries, -, hresolve⟩ := bind_eq_ok.1 hresolved
    obtain ⟨config, hsettled, hconfig⟩ :=
      settled_of_accepted h hmade (.inr ⟨entries, resolve_eq_ok.1 hresolve⟩)
    obtain rfl := Except.ok.inj hconfig
    exact confirm_eq_ok.2 (config_toValue h.validator hsettled)

end Accepted

/-- Instances, the first of which is a section of the settings with a width of eight. -/
def eightWide : Builtin.Instances := fun name token =>
  if name = "FormattingConfig" ∧ token = 0 then some (Formatting.toValue { indentSize := 8 })
  else none

theorem instanceOf_eightWide {name : String} {value : Value} {dumped : Dumped}
    (h : Builtin.instanceOf eightWide name value = some dumped) :
    name = "FormattingConfig" ∧ dumped = .ok (Formatting.toValue { indentSize := 8 }) := by
  unfold Builtin.instanceOf at h
  split at h
  · obtain ⟨found, hfound, rfl⟩ := Option.map_eq_some_iff.1 h
    rw [eightWide] at hfound
    split_ifs at hfound with hname
    exact ⟨hname.1, congrArg Except.ok (Option.some.inj hfound).symm⟩
  · cases h

theorem made_eightWide (homes : Homes) : (Builtin.validator eightWide).Made homes where
  output hvalue := absurd (instanceOf_eightWide hvalue).1 (by decide)
  logging hvalue := absurd (instanceOf_eightWide hvalue).1 (by decide)
  formatting hvalue := by
    obtain ⟨-, rfl⟩ := instanceOf_eightWide hvalue
    exact ⟨[(.text "indent_size", .nat 8)], rfl⟩
  config hvalue := absurd (instanceOf_eightWide hvalue).1 (by decide)

/-- Settings that are not written as they are kept: an instance, and a path below the home. -/
def untidy : Value :=
  .object [("formatting",
      .scalar (.other { token := 0, detailed := "formatting", short := "formatting" })),
    ("logging", .object [("outputs", .list [.object [("destination", .text "~//a/./b")]])])]

/-- The same settings, as overrides. -/
def untidySources : Sources where
  system := Builtin.system "/work" "/home/someone" []
  globalPath := "/etc/settings.yaml".toList
  overrides := untidy.entries

/-- The settings as they are kept. -/
def kept : Config where
  logging := { outputs := [{ destination := .file "/home/someone/a/b" }] }
  formatting := { indentSize := 8 }

end Settings

end SourceLens
