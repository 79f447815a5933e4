import SourceLens.Proofs.Settings.Laws
import SourceLens.Settings.Load

/-!
# What each source gives

Settings are loaded from what four sources give, each of them a mapping or an error of its own. Once
the file of the project is found, the entries that are validated are a function of these four
(`mergedEntries_eq`), and every mapping among them holds each key once, as do the sections in it
(`Sources.tidy_given`), as long as the caller gives each override once.
-/

namespace SourceLens.Settings

open Entries (Distinct Tidy)

/-- A source of settings, the weakest first. -/
inductive Source where
  | globalFile
  | projectFile
  | environment
  | overrides
  deriving DecidableEq

def Source.rank : Source → Nat
  | globalFile => 0
  | projectFile => 1
  | environment => 2
  | overrides => 3

def Source.turn : Source → Nat
  | globalFile => 0
  | projectFile => 1
  | overrides => 2
  | environment => 3

/-- What a source gives. -/
def Sources.given (sources : Sources) (packages : Packages) : Source → Except LoadError Entries
  | .globalFile => readFile packages sources.system sources.globalPath
  | .projectFile => (projectFile sources).bind (readFile packages sources.system)
  | .environment =>
    (packages.environment declared sources.overrides sources.vars).mapError .raised
  | .overrides => (packages.overrides declared sources.overrides).mapError .raised

theorem readFile_eq (packages : Packages) (system : System) (path : Text) :
    readFile packages system path = ((system.status path).mapError LoadError.raised).bind fun status =>
      if status = .absent then .ok []
      else ((system.content path).mapError LoadError.raised).bind fun bytes =>
        ((packages.documents bytes).mapError (.ofDocument path)).bind (topEntries path) := rfl

theorem topEntries_ok {path : Text} {value : Value} {entries : Entries}
    (h : topEntries path value = .ok entries) : entries = [] ∨ value = .map entries := by
  unfold topEntries at h
  split_ifs at h
  · exact .inl (Except.ok.inj h).symm
  · split at h
    · exact .inr (congrArg Value.map (Except.ok.inj h))
    · cases h

section Packages

variable {packages : Packages}

theorem tidy_readFile (h : packages.Lawful) {system : System} {path : Text} {entries : Entries}
    (hread : readFile packages system path = .ok entries) : entries.Tidy := by
  rw [readFile_eq] at hread
  obtain ⟨status, -, hread⟩ := bind_eq_ok.1 hread
  split_ifs at hread
  · obtain rfl := Except.ok.inj hread
    exact Entries.tidy_nil
  · obtain ⟨bytes, -, hread⟩ := bind_eq_ok.1 hread
    obtain ⟨value, hvalue, htop⟩ := bind_eq_ok.1 hread
    rcases topEntries_ok htop with rfl | rfl
    · exact Entries.tidy_nil
    · exact h.documents (mapError_eq_ok.1 hvalue)

theorem Sources.tidy_given (h : packages.Lawful) {sources : Sources}
    (hoverrides : sources.overrides.Tidy) {source : Source} {entries : Entries}
    (hgiven : sources.given packages source = .ok entries) : entries.Tidy := by
  cases source with
  | globalFile => exact tidy_readFile h hgiven
  | projectFile =>
    obtain ⟨path, -, hread⟩ := bind_eq_ok.1 hgiven
    exact tidy_readFile h hread
  | environment => exact h.environment (mapError_eq_ok.1 hgiven)
  | overrides => exact h.overrides hoverrides (mapError_eq_ok.1 hgiven)

end Packages

/-! ## All sources -/

/-- The entries of four mappings, merged. -/
def stack (layer : Source → Entries) : Entries :=
  Entries.merge (Entries.merge (layer .globalFile) (layer .projectFile))
    (Entries.merge (layer .environment) (layer .overrides))

/-- What four sources give, merged; the error of the first that fails, in the order in which they
are read. -/
def mergeAll (given : Source → Except LoadError Entries) : Except LoadError Entries := do
  let globalEntries ← given .globalFile
  let projectEntries ← given .projectFile
  let overrides ← given .overrides
  let environment ← given .environment
  return Entries.merge (Entries.merge globalEntries projectEntries)
    (Entries.merge environment overrides)

theorem mergeAll_ok {given : Source → Except LoadError Entries} {layer : Source → Entries}
    (h : ∀ source, given source = .ok (layer source)) : mergeAll given = .ok (stack layer) := by
  simp only [mergeAll, h]
  rfl

theorem layers_of_mergeAll {given : Source → Except LoadError Entries} {entries : Entries}
    (h : mergeAll given = .ok entries) :
    ∃ layer : Source → Entries, (∀ source, given source = .ok (layer source))
      ∧ entries = stack layer := by
  have hall (source : Source) : ∃ layer, given source = .ok layer := by
    obtain ⟨g, hg, h⟩ := bind_eq_ok.1 h
    obtain ⟨p, hp, h⟩ := bind_eq_ok.1 h
    obtain ⟨o, ho, h⟩ := bind_eq_ok.1 h
    obtain ⟨e, he, -⟩ := bind_eq_ok.1 h
    cases source with
    | globalFile => exact ⟨g, hg⟩
    | projectFile => exact ⟨p, hp⟩
    | environment => exact ⟨e, he⟩
    | overrides => exact ⟨o, ho⟩
  choose layer hlayer using hall
  rw [mergeAll_ok hlayer] at h
  exact ⟨layer, hlayer, (Except.ok.inj h).symm⟩

theorem mergeAll_eq_error {given : Source → Except LoadError Entries} {error : LoadError} :
    mergeAll given = .error error ↔ ∃ source, given source = .error error
      ∧ ∀ other, other.turn < source.turn → ∃ entries, given other = .ok entries := by
  constructor
  · intro h
    obtain hglobal | ⟨g, hg, h⟩ := bind_eq_error.1 h
    · exact ⟨.globalFile, hglobal, fun other hlt => absurd hlt (Nat.not_lt_zero _)⟩
    obtain hproject | ⟨p, hp, h⟩ := bind_eq_error.1 h
    · refine ⟨.projectFile, hproject, fun other hlt => ?_⟩
      cases other with
      | globalFile => exact ⟨g, hg⟩
      | _ => exact absurd hlt (by decide)
    obtain hoverrides | ⟨o, ho, h⟩ := bind_eq_error.1 h
    · refine ⟨.overrides, hoverrides, fun other hlt => ?_⟩
      cases other with
      | globalFile => exact ⟨g, hg⟩
      | projectFile => exact ⟨p, hp⟩
      | _ => exact absurd hlt (by decide)
    obtain henvironment | ⟨e, he, h⟩ := bind_eq_error.1 h
    · refine ⟨.environment, henvironment, fun other hlt => ?_⟩
      cases other with
      | globalFile => exact ⟨g, hg⟩
      | projectFile => exact ⟨p, hp⟩
      | overrides => exact ⟨o, ho⟩
      | environment => exact absurd hlt (Nat.lt_irrefl _)
    · cases h
  · rintro ⟨source, hfails, hearlier⟩
    rw [mergeAll]
    cases source with
    | globalFile =>
      rw [hfails]
      rfl
    | projectFile =>
      obtain ⟨g, hg⟩ := hearlier .globalFile (by decide)
      rw [hg, hfails]
      rfl
    | overrides =>
      obtain ⟨g, hg⟩ := hearlier .globalFile (by decide)
      obtain ⟨p, hp⟩ := hearlier .projectFile (by decide)
      rw [hg, hp, hfails]
      rfl
    | environment =>
      obtain ⟨g, hg⟩ := hearlier .globalFile (by decide)
      obtain ⟨p, hp⟩ := hearlier .projectFile (by decide)
      obtain ⟨o, ho⟩ := hearlier .overrides (by decide)
      rw [hg, hp, ho, hfails]
      rfl

theorem mergeAll_eq_or {given given' : Source → Except LoadError Entries}
    (h : ∀ source, (∃ a b, given source = .ok a ∧ given' source = .ok b)
      ∨ ∃ cause, given source = .error cause ∧ given' source = .error cause) :
    mergeAll given = mergeAll given'
      ∨ ∃ layer layer' : Source → Entries, (∀ source, given source = .ok (layer source))
        ∧ ∀ source, given' source = .ok (layer' source) := by
  by_cases hall : ∀ source, ∃ a b, given source = .ok a ∧ given' source = .ok b
  · choose layer layer' hlayers using hall
    exact .inr ⟨layer, layer', fun source => (hlayers source).1, fun source => (hlayers source).2⟩
  · left
    rw [mergeAll, mergeAll]
    obtain ⟨g, g', hg, hg'⟩ | ⟨cause, hg, hg'⟩ := h .globalFile <;> rw [hg, hg']
    · obtain ⟨p, p', hp, hp'⟩ | ⟨cause, hp, hp'⟩ := h .projectFile <;> rw [hp, hp']
      · obtain ⟨o, o', ho, ho'⟩ | ⟨cause, ho, ho'⟩ := h .overrides <;> rw [ho, ho']
        · obtain ⟨e, e', he, he'⟩ | ⟨cause, he, he'⟩ := h .environment <;> rw [he, he']
          · refine absurd (fun source => ?_) hall
            cases source with
            | globalFile => exact ⟨g, g', hg, hg'⟩
            | projectFile => exact ⟨p, p', hp, hp'⟩
            | environment => exact ⟨e, e', he, he'⟩
            | overrides => exact ⟨o, o', ho, ho'⟩
          · rfl
        · rfl
      · rfl
    · rfl

section Packages

variable {packages : Packages} (h : packages.Lawful)

include h

theorem gather_eq (overrides environment files : Entries) :
    packages.gather [overrides, environment, files]
      = Entries.merge files (Entries.merge environment overrides) := by
  have hoverrides : Entries.merge overrides [] = overrides := by rw [Entries.merge]
  rw [h.gather]
  show Entries.merge files (Entries.merge environment (Entries.merge overrides [])) = _
  rw [hoverrides]

theorem mergedEntries_eq (sources : Sources) :
    mergedEntries packages sources
      = (projectFile sources).bind fun _ => mergeAll (sources.given packages) := by
  rw [mergedEntries]
  cases hpath : projectFile sources with
  | error cause => rfl
  | ok path =>
    have hproject : sources.given packages .projectFile = readFile packages sources.system path := by
      rw [Sources.given, hpath]
      rfl
    have hglobal : sources.given packages .globalFile
        = readFile packages sources.system sources.globalPath := rfl
    show Except.bind (.ok path) _ = mergeAll (sources.given packages)
    rw [mergeAll, hproject, hglobal, Sources.given, Sources.given]
    simp only [gather_eq h]
    rfl

end Packages

theorem resolved_eq {packages : Packages} (h : packages.Lawful) (sources : Sources) :
    resolved packages sources = (projectFile sources).bind fun _ =>
      (mergeAll (sources.given packages)).bind (resolve packages.validator sources.system.homes) := by
  rw [resolved, mergedEntries_eq h]
  cases projectFile sources <;> rfl

/-! ## Settings and their confirmation -/

section Validation

variable {validator : Validator} {homes : Homes} {value out : Value}

theorem resolve_eq_ok {entries : Entries} :
    resolve validator homes entries = .ok value
      ↔ validator.settings (validator.sectionFields homes) entries = .ok (.ok value) := by
  constructor
  · intro h
    obtain ⟨dumped, hsettings, hdumped⟩ := bind_eq_ok.1 h
    rw [mapError_eq_ok.1 hdumped] at hsettings
    exact mapError_eq_ok.1 hsettings
  · intro h
    rw [resolve, h]
    rfl

theorem confirm_eq_ok :
    confirm validator homes value = .ok out ↔ validator.config homes value = .ok (.ok out) := by
  rw [confirm]
  rcases validator.config homes value with (_ | _) | (_ | _) <;> simp [Except.mapError]

end Validation

end SourceLens.Settings
